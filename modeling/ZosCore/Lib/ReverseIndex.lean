import Mathlib.Tactic

/-!
Reverse indexes: for every key the set of the objects that mention it, kept up to date
while objects come, change and go.

* `insertAll`, `eraseAll`: an object is entered under, or struck from, all keys of a list.
* `replaceAll before after`: an object is struck from the keys that it mentions no more
  and entered under those that are new.
* `Inverts members find m`: the index `m` is the inverse of the relation "`members v` has
  the key, `v` being the object that `find` shows". `Inverts.insertAll`,
  `Inverts.eraseAll` and `Inverts.replaceAll` keep it.
* `Inverts.replaceAll_same`: if the object mentions what it mentioned before, the index
  is right whatever `before` was.
-/

namespace ZosCore

/-- For every key the set of the objects that mention it. -/
def ReverseIndex (κ ι : Type) : Type := κ → Finset ι

namespace ReverseIndex

variable {κ ι V : Type} [DecidableEq κ] [DecidableEq ι]

/-- The index without entries. -/
def empty : ReverseIndex κ ι := fun _ => ∅

/-- The set under one key is replaced. -/
def put (m : ReverseIndex κ ι) (x : κ) (s : Finset ι) : ReverseIndex κ ι := Function.update m x s

/-- The object is entered under every key of the list. -/
def insertAll (id : ι) : List κ → ReverseIndex κ ι → ReverseIndex κ ι
  | [], m => m
  | x :: l, m => insertAll id l (m.put x (insert id (m x)))

/-- The object is struck from every key of the list. -/
def eraseAll (id : ι) : List κ → ReverseIndex κ ι → ReverseIndex κ ι
  | [], m => m
  | x :: l, m => eraseAll id l (m.put x ((m x).erase id))

/-- The object is struck from the keys that are in `before` only, and entered under those
that are in `after` only. -/
def replaceAll (id : ι) (before after : List κ) (m : ReverseIndex κ ι) : ReverseIndex κ ι :=
  insertAll id (after.filter (· ∉ before)) (eraseAll id (before.filter (· ∉ after)) m)

omit [DecidableEq ι] in
lemma put_apply (m : ReverseIndex κ ι) (x y : κ) (s : Finset ι) :
    m.put x s y = if y = x then s else m y :=
  Function.update_apply m x s y

lemma mem_insertAll {id id' : ι} {x : κ} (l : List κ) : ∀ {m : ReverseIndex κ ι},
    id' ∈ insertAll id l m x ↔ id' ∈ m x ∨ x ∈ l ∧ id' = id := by
  induction l with
  | nil =>
      intro m
      simp [insertAll]
  | cons y l ih =>
      intro m
      rw [insertAll, ih, put_apply]
      by_cases hxy : x = y
      · subst hxy
        simp only [if_true, Finset.mem_insert, List.mem_cons, true_or, true_and]
        tauto
      · simp [hxy]

lemma mem_eraseAll {id id' : ι} {x : κ} (l : List κ) : ∀ {m : ReverseIndex κ ι},
    id' ∈ eraseAll id l m x ↔ id' ∈ m x ∧ ¬ (x ∈ l ∧ id' = id) := by
  induction l with
  | nil =>
      intro m
      simp [eraseAll]
  | cons y l ih =>
      intro m
      rw [eraseAll, ih, put_apply]
      by_cases hxy : x = y
      · subst hxy
        simp only [if_true, Finset.mem_erase, List.mem_cons, true_or, true_and]
        tauto
      · simp [hxy]

/-- The other objects stay where they are. -/
lemma mem_replaceAll_of_ne {id id' : ι} (h : id' ≠ id) (before after : List κ)
    {m : ReverseIndex κ ι} {x : κ} : id' ∈ replaceAll id before after m x ↔ id' ∈ m x := by
  simp [replaceAll, mem_insertAll, mem_eraseAll, h]

/-- The object itself is under the keys of `after`, and stays under those that neither list
has. -/
lemma mem_replaceAll_self {id : ι} (before after : List κ) {m : ReverseIndex κ ι} {x : κ} :
    id ∈ replaceAll id before after m x ↔
      x ∈ after ∧ (x ∉ before ∨ id ∈ m x) ∨ x ∉ after ∧ x ∉ before ∧ id ∈ m x := by
  simp only [replaceAll, mem_insertAll, mem_eraseAll, List.mem_filter, decide_eq_true_eq, and_true]
  tauto

/-! ### The inverse of a relation -/

/-- The objects in the set of a key are those that mention it. -/
def Inverts (members : V → List κ) (find : ι → Option V) (m : ReverseIndex κ ι) : Prop :=
  ∀ x id, id ∈ m x ↔ ∃ v, find id = some v ∧ x ∈ members v

namespace Inverts

variable {members : V → List κ} {find find' : ι → Option V} {m : ReverseIndex κ ι} {id : ι}
  {v w : V}

omit [DecidableEq κ] [DecidableEq ι] in
/-- There is no object. -/
lemma empty (h : ∀ id, find id = none) : Inverts members find ReverseIndex.empty := by
  intro x id
  simp [ReverseIndex.empty, h id]

/-- A new object is entered under all it mentions. -/
lemma insertAll (h : Inverts members find m) (hnone : find id = none) (hv : find' id = some v)
    (hne : ∀ id', id' ≠ id → find' id' = find id') :
    Inverts members find' (insertAll id (members v) m) := by
  intro x id'
  rw [mem_insertAll, h x id']
  by_cases hid : id' = id
  · subst hid
    simp [hnone, hv]
  · simp [hid, hne id' hid]

/-- An object that goes is struck from all it mentions. -/
lemma eraseAll (h : Inverts members find m) (hv : find id = some v) (hnone : find' id = none)
    (hne : ∀ id', id' ≠ id → find' id' = find id') :
    Inverts members find' (eraseAll id (members v) m) := by
  intro x id'
  rw [mem_eraseAll, h x id']
  by_cases hid : id' = id
  · subst hid
    simp [hnone, hv]
  · simp [hid, hne id' hid]

/-- An object that changes is moved from what it mentioned to what it mentions. -/
lemma replaceAll (h : Inverts members find m) (hv : find id = some v) (hw : find' id = some w)
    (hne : ∀ id', id' ≠ id → find' id' = find id') :
    Inverts members find' (replaceAll id (members v) (members w) m) := by
  intro x id'
  by_cases hid : id' = id
  · subst hid
    rw [mem_replaceAll_self, h x id']
    simp only [hv, hw, Option.some.injEq, exists_eq_left']
    tauto
  · rw [mem_replaceAll_of_ne hid, h x id', hne id' hid]

/-- If it mentions what it mentioned before, it does not matter from where it is thought to
be moved. -/
lemma replaceAll_same (h : Inverts members find m) (hv : find id = some v)
    (hw : find' id = some w) (hne : ∀ id', id' ≠ id → find' id' = find id')
    (hsame : members w = members v) (before : List κ) :
    Inverts members find' (ReverseIndex.replaceAll id before (members w) m) := by
  intro x id'
  by_cases hid : id' = id
  · subst hid
    rw [mem_replaceAll_self, h x id', hsame]
    simp only [hv, hw, Option.some.injEq, exists_eq_left', hsame]
    tauto
  · rw [mem_replaceAll_of_ne hid, h x id', hne id' hid]

end Inverts

end ReverseIndex

end ZosCore
