import Mathlib.Tactic

/-!
Merkle trees over lists of any length.

* `levelUp hash`: pairs the digests of a level, and takes an unpaired last one up unchanged.
* `root hash`: the digest that is left at the top. A list without digests has none.
* **`root_injective`**: with a hash without collisions, two lists of one length that have the same
  root are equal.
-/

namespace ZosCore.Merkle

variable {D : Type} {hash : D × D → D} {l l' : List D}

/-- Pairs the digests of a level. -/
def levelUp (hash : D × D → D) : List D → List D
  | a :: b :: l => hash (a, b) :: levelUp hash l
  | l => l

@[simp] lemma levelUp_nil : levelUp hash [] = [] := rfl

@[simp] lemma levelUp_singleton (d : D) : levelUp hash [d] = [d] := rfl

@[simp] lemma levelUp_cons_cons (a b : D) (l : List D) :
    levelUp hash (a :: b :: l) = hash (a, b) :: levelUp hash l := rfl

lemma length_levelUp (hash : D × D → D) (l : List D) :
    (levelUp hash l).length = l.length / 2 + l.length % 2 := by
  induction l using levelUp.induct with
  | case1 a b l ih =>
      rw [levelUp_cons_cons, List.length_cons, ih, List.length_cons, List.length_cons]
      omega
  | case2 l h =>
      rcases l with _ | ⟨a, _ | ⟨b, l⟩⟩
      · simp
      · simp
      · exact absurd rfl (h a b l)

/-- A front with an even number of digests is paired on its own. -/
lemma levelUp_append (h : l.length % 2 = 0) : levelUp hash (l ++ l') =
    levelUp hash l ++ levelUp hash l' := by
  induction l using levelUp.induct with
  | case1 a b l ih =>
      rw [List.length_cons, List.length_cons] at h
      rw [List.cons_append, List.cons_append, levelUp_cons_cons, levelUp_cons_cons, List.cons_append,
        ih (by omega)]
  | case2 l hl =>
      rcases l with _ | ⟨a, _ | ⟨b, l⟩⟩
      · simp
      · simp at h
      · exact absurd rfl (hl a b l)

/-- The digest at the top. -/
def root (hash : D × D → D) : List D → Option D
  | [] => none
  | [d] => some d
  | a :: b :: l => root hash (levelUp hash (a :: b :: l))
  termination_by l => l.length
  decreasing_by
    rw [length_levelUp, List.length_cons, List.length_cons]
    omega

@[simp] lemma root_nil : root hash [] = none := by rw [root]

@[simp] lemma root_singleton (d : D) : root hash [d] = some d := by rw [root]

/-- The root of a list is that of its level up. -/
lemma root_levelUp (hash : D × D → D) (l : List D) : root hash (levelUp hash l) = root hash l := by
  rcases l with _ | ⟨a, _ | ⟨b, l⟩⟩
  · rfl
  · rfl
  · conv_rhs => rw [root]

/-- A list with digests has a root. -/
lemma exists_root (hash : D × D → D) (hl : l ≠ []) : ∃ d, root hash l = some d := by
  induction hn : l.length using Nat.strong_induction_on generalizing l with
  | _ n ih =>
      rcases l with _ | ⟨a, _ | ⟨b, l⟩⟩
      · exact absurd rfl hl
      · exact ⟨a, root_singleton a⟩
      · rw [← root_levelUp]
        refine ih _ ?_ (List.cons_ne_nil _ _) rfl
        rw [← hn, length_levelUp, List.length_cons, List.length_cons]
        omega

/-- Two levels of one length are equal if the levels up are. -/
lemma levelUp_injective (hhash : Function.Injective hash) (hlen : l.length = l'.length)
    (h : levelUp hash l = levelUp hash l') : l = l' := by
  induction l using levelUp.induct generalizing l' with
  | case1 a b l ih =>
      rcases l' with _ | ⟨a', _ | ⟨b', l'⟩⟩
      · simp at hlen
      · simp at hlen
      · rw [levelUp_cons_cons, levelUp_cons_cons, List.cons.injEq] at h
        have hpair : (a, b) = (a', b') := hhash h.1
        rw [Prod.mk.injEq] at hpair
        rw [hpair.1, hpair.2, ih (by simpa using hlen) h.2]
  | case2 l hl =>
      rcases l with _ | ⟨a, _ | ⟨b, l⟩⟩
      · exact (List.length_eq_zero_iff.mp hlen.symm).symm
      · obtain ⟨a', rfl⟩ := List.length_eq_one_iff.mp hlen.symm
        exact h
      · exact absurd rfl (hl a b l)

/-- **The root binds the digests.** Two lists of one length with the same root are equal. -/
theorem root_injective (hhash : Function.Injective hash) (hlen : l.length = l'.length)
    (h : root hash l = root hash l') : l = l' := by
  induction hn : l.length using Nat.strong_induction_on generalizing l l' with
  | _ n ih =>
      rcases l with _ | ⟨a, _ | ⟨b, l⟩⟩
      · exact (List.length_eq_zero_iff.mp hlen.symm).symm
      · obtain ⟨a', rfl⟩ := List.length_eq_one_iff.mp hlen.symm
        rw [root_singleton, root_singleton] at h
        rw [Option.some.inj h]
      · have hup : (levelUp hash (a :: b :: l)).length = (levelUp hash l').length := by
          rw [length_levelUp, length_levelUp, hlen]
        refine levelUp_injective hhash hlen (ih _ ?_ hup ?_ rfl)
        · rw [← hn, length_levelUp, List.length_cons, List.length_cons]
          omega
        · rw [root_levelUp, root_levelUp, h]

end ZosCore.Merkle
