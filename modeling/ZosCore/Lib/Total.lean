import Mathlib.Tactic
import Mathlib.Data.List.AList

/-!
Sums over the entries of an association list, and what an insertion does to them.

* `total f s`: the sum of `f` over the entries.
* `total_insert_of_lookup`, `total_insert_of_none`: an entry is replaced, or a new one made.
* `total_nonneg`, `term_le_total`: a sum without negative terms is at least each of them.
-/

namespace ZosCore

variable {ι α : Type} [DecidableEq ι] {f : ι → α → ℤ} {s : AList fun _ : ι => α} {i : ι} {a b : α}

omit [DecidableEq ι] in
/-- The sum of `f` over the entries. -/
def total (f : ι → α → ℤ) (s : AList fun _ : ι => α) : ℤ :=
  (s.entries.map fun e => f e.1 e.2).sum

/-- One entry apart from the others. -/
lemma total_eq_erase (h : s.lookup i = some a) : total f s = f i a + total f (s.erase i) := by
  have hmem : ⟨i, a⟩ ∈ s.entries := AList.mem_lookup_iff.mp h
  have hkey : i ∈ s.entries.keys := List.mem_keys_of_mem hmem
  obtain ⟨b, l₁, l₂, -, hl, herase⟩ := List.exists_of_kerase hkey
  have hb : b = a := by
    have hlook : s.lookup i = some b := AList.mem_lookup_iff.mpr (by rw [hl]; simp)
    rw [h] at hlook
    exact (Option.some.inj hlook).symm
  subst hb
  show (s.entries.map fun e => f e.1 e.2).sum =
    f i b + ((List.kerase i s.entries).map fun e => f e.1 e.2).sum
  rw [herase, hl]
  simp only [List.map_append, List.map_cons, List.sum_append, List.sum_cons]
  ring

/-- An entry that is put in, and the others. -/
lemma total_insert : total f (s.insert i a) = f i a + total f (s.erase i) := by
  show ((s.insert i a).entries.map fun e => f e.1 e.2).sum = _
  rw [AList.entries_insert]
  rfl

/-- An entry is replaced. -/
lemma total_insert_of_lookup (h : s.lookup i = some a) :
    total f (s.insert i b) = total f s - f i a + f i b := by
  rw [total_insert, total_eq_erase h]
  ring

/-- A new entry is made. -/
lemma total_insert_of_none (h : s.lookup i = none) :
    total f (s.insert i a) = total f s + f i a := by
  have hkey : i ∉ s.entries.keys := AList.lookup_eq_none.mp h
  have herase : s.erase i = s := AList.ext (List.kerase_of_notMem_keys hkey)
  rw [total_insert, herase]
  ring

lemma nonneg_of_lookup (h : ∀ i a, s.lookup i = some a → 0 ≤ f i a) :
    ∀ x ∈ s.entries.map fun e => f e.1 e.2, 0 ≤ x := by
  rintro _ hx
  obtain ⟨⟨i, a⟩, hmem, rfl⟩ := List.mem_map.mp hx
  exact h i a (AList.mem_lookup_iff.mpr hmem)

lemma total_nonneg (h : ∀ i a, s.lookup i = some a → 0 ≤ f i a) : 0 ≤ total f s :=
  List.sum_nonneg (nonneg_of_lookup h)

lemma term_le_total (h : ∀ i a, s.lookup i = some a → 0 ≤ f i a) (ha : s.lookup i = some a) :
    f i a ≤ total f s :=
  List.single_le_sum (nonneg_of_lookup h) _
    (List.mem_map.mpr ⟨⟨i, a⟩, AList.mem_lookup_iff.mp ha, rfl⟩)

end ZosCore
