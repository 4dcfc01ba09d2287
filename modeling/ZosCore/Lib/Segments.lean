import Mathlib.Algebra.BigOperators.Group.Multiset.Basic
import Mathlib.Order.Interval.Set.Basic
import Mathlib.Tactic

/-!
Weighted points in disjoint segments of a linear order.

A list of segments, one after the other and with gaps between them, divides a collection of weighted
points if every point is in one of them and the total of each is the weight of its points.

* `Segment`, `Divides`: the segments, and that they divide the points.
* `Divides.widen`, `Divides.add`: a segment takes in a new point without touching its neighbours, or
  the point gets a segment of its own.
* `Divides.lower`, `Divides.drop`: a point is taken out of its segment, or with it.
-/

namespace ZosCore

/-- A segment of a linear order, with a total. -/
structure Segment (L : Type) where
  lo : L
  hi : L
  total : ℕ

namespace Segment

variable {L : Type} [LinearOrder L]

/-- The points of a segment. -/
def Contains (s : Segment L) (x : L) : Prop := s.lo ≤ x ∧ x ≤ s.hi

instance (s : Segment L) : DecidablePred s.Contains :=
  fun x => inferInstanceAs (Decidable (s.lo ≤ x ∧ x ≤ s.hi))

/-- The weight of the points in a segment. -/
def weight (s : Segment L) (pts : Multiset (L × ℕ)) : ℕ :=
  ((pts.filter fun q => s.Contains q.1).map Prod.snd).sum

/-- The segments divide the points. -/
structure Divides (l : List (Segment L)) (pts : Multiset (L × ℕ)) : Prop where
  apart : l.Pairwise fun a b => a.hi < b.lo
  le : ∀ s ∈ l, s.lo ≤ s.hi
  covered : ∀ q ∈ pts, ∃ s ∈ l, s.Contains q.1
  total : ∀ s ∈ l, s.total = s.weight pts

variable {l pre post : List (Segment L)} {s s' : Segment L} {pts : Multiset (L × ℕ)} {x : L} {w : ℕ}

lemma weight_cons_of_contains (h : s.Contains x) : s.weight ((x, w) ::ₘ pts) = s.weight pts + w := by
  rw [weight, Multiset.filter_cons_of_pos (p := fun q : L × ℕ => s.Contains q.1) (a := (x, w)) _ h,
    Multiset.map_cons, Multiset.sum_cons, add_comm]
  rfl

lemma weight_cons_of_not_contains (h : ¬ s.Contains x) : s.weight ((x, w) ::ₘ pts) = s.weight pts := by
  rw [weight, Multiset.filter_cons_of_neg (p := fun q : L × ℕ => s.Contains q.1) (a := (x, w)) _ h]
  rfl

/-- Segments with the same points in them have the same weight. -/
lemma weight_congr (h : ∀ q ∈ pts, s.Contains q.1 ↔ s'.Contains q.1) : s.weight pts = s'.weight pts := by
  rw [weight, weight, Multiset.filter_congr h]

lemma Divides.empty : Divides ([] : List (Segment L)) 0 where
  apart := .nil
  le _ h := by cases h
  covered _ h := by cases h
  total _ h := by cases h

/-! ### Neighbours -/

lemma Divides.hi_lt (h : Divides (pre ++ s :: post) pts) {t : Segment L} (ht : t ∈ pre) :
    t.hi < s.lo :=
  (List.pairwise_append.mp h.apart).2.2 t ht s List.mem_cons_self

lemma Divides.lt_lo (h : Divides (pre ++ s :: post) pts) {t : Segment L} (ht : t ∈ post) :
    s.hi < t.lo :=
  (List.pairwise_cons.mp (List.pairwise_append.mp h.apart).2.1).1 t ht

/-! ### A new point -/

/-- A segment is widened so far that it takes in a new point, but does not reach its neighbours. -/
lemma Divides.widen (h : Divides (pre ++ s :: post) pts) (hlo : s'.lo ≤ s.lo) (hhi : s.hi ≤ s'.hi)
    (hx : s'.Contains x) (hpre : ∀ t ∈ pre, t.hi < s'.lo) (hpost : ∀ t ∈ post, s'.hi < t.lo)
    (htotal : s'.total = s.total + w) : Divides (pre ++ s' :: post) ((x, w) ::ₘ pts) := by
  have hapart := List.pairwise_append.mp h.apart
  have hpost' := (List.pairwise_cons.mp hapart.2.1).2
  have hmem : s ∈ pre ++ s :: post := List.mem_append_right _ List.mem_cons_self
  have hout : ∀ t, t ∈ pre ∨ t ∈ post → ¬ t.Contains x := by
    rintro t (ht | ht) hc
    · exact absurd (hc.2.trans_lt (hpre t ht)) (not_lt.mpr hx.1)
    · exact absurd ((hpost t ht).trans_le hc.1) (not_lt.mpr hx.2)
  have hle : s'.lo ≤ s'.hi := hx.1.trans hx.2
  refine ⟨?_, ?_, ?_, ?_⟩
  · refine List.pairwise_append.mpr ⟨hapart.1, List.pairwise_cons.mpr ⟨hpost, hpost'⟩, ?_⟩
    intro t ht u hu
    rcases List.mem_cons.mp hu with rfl | hu
    · exact hpre t ht
    · exact hapart.2.2 t ht u (List.mem_cons_of_mem s hu)
  · intro t ht
    rcases List.mem_append.mp ht with ht | ht
    · exact h.le t (List.mem_append_left _ ht)
    · rcases List.mem_cons.mp ht with rfl | ht
      · exact hle
      · exact h.le t (List.mem_append_right _ (List.mem_cons_of_mem s ht))
  · intro q hq
    rcases Multiset.mem_cons.mp hq with rfl | hq
    · exact ⟨s', List.mem_append_right _ List.mem_cons_self, hx⟩
    · obtain ⟨t, ht, hc⟩ := h.covered q hq
      rcases List.mem_append.mp ht with ht | ht
      · exact ⟨t, List.mem_append_left _ ht, hc⟩
      · rcases List.mem_cons.mp ht with rfl | ht
        · exact ⟨s', List.mem_append_right _ List.mem_cons_self, hlo.trans hc.1, hc.2.trans hhi⟩
        · exact ⟨t, List.mem_append_right _ (List.mem_cons_of_mem s' ht), hc⟩
  · intro t ht
    rcases List.mem_append.mp ht with ht | ht
    · rw [weight_cons_of_not_contains (hout t (.inl ht))]
      exact h.total t (List.mem_append_left _ ht)
    · rcases List.mem_cons.mp ht with rfl | ht
      · -- what is in the wider segment was in the segment, as it was nowhere else
        have hsame : ∀ q ∈ pts, t.Contains q.1 ↔ s.Contains q.1 := by
          intro q hq
          refine ⟨fun hc => ?_, fun hc => ⟨hlo.trans hc.1, hc.2.trans hhi⟩⟩
          obtain ⟨u, hu, hcu⟩ := h.covered q hq
          rcases List.mem_append.mp hu with hu | hu
          · exact absurd (hcu.2.trans_lt (hpre u hu)) (not_lt.mpr hc.1)
          · rcases List.mem_cons.mp hu with rfl | hu
            · exact hcu
            · exact absurd ((hpost u hu).trans_le hcu.1) (not_lt.mpr hc.2)
        rw [weight_cons_of_contains hx, weight_congr hsame, htotal, h.total s hmem]
      · rw [weight_cons_of_not_contains (hout t (.inr ht))]
        exact h.total t (List.mem_append_right _ (List.mem_cons_of_mem s ht))

/-- A new point between the segments gets one of its own. -/
lemma Divides.add (h : Divides (pre ++ post) pts) (hpre : ∀ t ∈ pre, t.hi < x)
    (hpost : ∀ t ∈ post, x < t.lo) : Divides (pre ++ ⟨x, x, w⟩ :: post) ((x, w) ::ₘ pts) := by
  have hapart := List.pairwise_append.mp h.apart
  have hout : ∀ t ∈ pre ++ post, ¬ t.Contains x := by
    intro t ht hc
    rcases List.mem_append.mp ht with ht | ht
    · exact absurd (hc.2.trans_lt (hpre t ht)) (lt_irrefl x)
    · exact absurd ((hpost t ht).trans_le hc.1) (lt_irrefl x)
  have hold : ∀ t, t ∈ pre ++ ⟨x, x, w⟩ :: post → t = ⟨x, x, w⟩ ∨ t ∈ pre ++ post := by
    intro t ht
    rcases List.mem_append.mp ht with ht | ht
    · exact .inr (List.mem_append_left _ ht)
    · exact (List.mem_cons.mp ht).imp_right (List.mem_append_right _)
  refine ⟨?_, ?_, ?_, ?_⟩
  · refine List.pairwise_append.mpr ⟨hapart.1, List.pairwise_cons.mpr ⟨hpost, hapart.2.1⟩, ?_⟩
    intro t ht u hu
    rcases List.mem_cons.mp hu with rfl | hu
    · exact hpre t ht
    · exact hapart.2.2 t ht u hu
  · intro t ht
    rcases hold t ht with rfl | ht
    · exact le_rfl
    · exact h.le t ht
  · intro q hq
    rcases Multiset.mem_cons.mp hq with rfl | hq
    · exact ⟨⟨x, x, w⟩, List.mem_append_right _ List.mem_cons_self, le_rfl, le_rfl⟩
    · obtain ⟨t, ht, hc⟩ := h.covered q hq
      refine ⟨t, ?_, hc⟩
      rcases List.mem_append.mp ht with ht | ht
      · exact List.mem_append_left _ ht
      · exact List.mem_append_right _ (List.mem_cons_of_mem _ ht)
  · intro t ht
    rcases hold t ht with rfl | ht
    · -- no point was there
      have hnone : (⟨x, x, w⟩ : Segment L).weight pts = 0 := by
        rw [weight, Multiset.filter_eq_nil.mpr, Multiset.map_zero, Multiset.sum_zero]
        intro q hq hc
        obtain ⟨t, ht, hct⟩ := h.covered q hq
        have hq : q.1 = x := le_antisymm hc.2 hc.1
        exact hout t ht (hq ▸ hct)
      rw [weight_cons_of_contains ⟨le_rfl, le_rfl⟩, hnone, Nat.zero_add]
    · rw [weight_cons_of_not_contains (hout t ht)]
      exact h.total t ht

/-! ### A point is taken out -/

lemma Divides.not_contains (h : Divides (pre ++ s :: post) pts) (hx : s.Contains x) {t : Segment L}
    (ht : t ∈ pre ∨ t ∈ post) : ¬ t.Contains x := by
  intro hc
  rcases ht with ht | ht
  · exact absurd (hc.2.trans_lt (h.hi_lt ht)) (not_lt.mpr hx.1)
  · exact absurd ((h.lt_lo ht).trans_le hc.1) (not_lt.mpr hx.2)

lemma Divides.le_total (h : Divides l ((x, w) ::ₘ pts)) (hs : s ∈ l) (hx : s.Contains x) :
    w ≤ s.total := by
  rw [h.total s hs, weight_cons_of_contains hx]
  exact Nat.le_add_left _ _

/-- A point is taken out of its segment, which stays. -/
lemma Divides.lower (h : Divides (pre ++ s :: post) ((x, w) ::ₘ pts)) (hx : s.Contains x) :
    Divides (pre ++ { s with total := s.total - w } :: post) pts := by
  have hapart := List.pairwise_append.mp h.apart
  have hmem : s ∈ pre ++ s :: post := List.mem_append_right _ List.mem_cons_self
  refine ⟨?_, ?_, ?_, ?_⟩
  · refine List.pairwise_append.mpr ⟨hapart.1, List.pairwise_cons.mpr
      ⟨(List.pairwise_cons.mp hapart.2.1).1, (List.pairwise_cons.mp hapart.2.1).2⟩, ?_⟩
    intro t ht u hu
    rcases List.mem_cons.mp hu with rfl | hu
    · exact h.hi_lt ht
    · exact hapart.2.2 t ht u (List.mem_cons_of_mem s hu)
  · intro t ht
    rcases List.mem_append.mp ht with ht | ht
    · exact h.le t (List.mem_append_left _ ht)
    · rcases List.mem_cons.mp ht with rfl | ht
      · exact h.le s hmem
      · exact h.le t (List.mem_append_right _ (List.mem_cons_of_mem s ht))
  · intro q hq
    obtain ⟨t, ht, hc⟩ := h.covered q (Multiset.mem_cons_of_mem hq)
    rcases List.mem_append.mp ht with ht | ht
    · exact ⟨t, List.mem_append_left _ ht, hc⟩
    · rcases List.mem_cons.mp ht with rfl | ht
      · exact ⟨_, List.mem_append_right _ List.mem_cons_self, hc⟩
      · exact ⟨t, List.mem_append_right _ (List.mem_cons_of_mem _ ht), hc⟩
  · intro t ht
    rcases List.mem_append.mp ht with ht | ht
    · rw [h.total t (List.mem_append_left _ ht),
        weight_cons_of_not_contains (h.not_contains hx (.inl ht))]
    · rcases List.mem_cons.mp ht with rfl | ht
      · have htotal := h.total s hmem
        rw [weight_cons_of_contains hx] at htotal
        change s.total - w = s.weight pts
        omega
      · rw [h.total t (List.mem_append_right _ (List.mem_cons_of_mem s ht)),
          weight_cons_of_not_contains (h.not_contains hx (.inr ht))]

/-- The last point of a segment is taken out with it. -/
lemma Divides.drop (h : Divides (pre ++ s :: post) ((x, w) ::ₘ pts)) (hx : s.Contains x)
    (hlast : ∀ q ∈ pts, ¬ s.Contains q.1) : Divides (pre ++ post) pts := by
  have hold : ∀ t ∈ pre ++ post, (t ∈ pre ∨ t ∈ post) ∧ t ∈ pre ++ s :: post := by
    intro t ht
    refine ⟨List.mem_append.mp ht, ?_⟩
    rcases List.mem_append.mp ht with ht | ht
    · exact List.mem_append_left _ ht
    · exact List.mem_append_right _ (List.mem_cons_of_mem s ht)
  refine ⟨h.apart.sublist (List.Sublist.append_left (List.sublist_cons_self s post) pre), ?_, ?_, ?_⟩
  · exact fun t ht => h.le t (hold t ht).2
  · intro q hq
    obtain ⟨t, ht, hc⟩ := h.covered q (Multiset.mem_cons_of_mem hq)
    refine ⟨t, ?_, hc⟩
    rcases List.mem_append.mp ht with ht | ht
    · exact List.mem_append_left _ ht
    · rcases List.mem_cons.mp ht with rfl | ht
      · exact absurd hc (hlast q hq)
      · exact List.mem_append_right _ ht
  · intro t ht
    rw [h.total t (hold t ht).2, weight_cons_of_not_contains (h.not_contains hx (hold t ht).1)]

end Segment

end ZosCore
