import Mathlib.Data.Finset.Card
import Mathlib.Data.List.Pairwise
import Mathlib.Logic.Function.Basic

/-!
Sets that know when their elements were put in, and forget the old ones.

* `Stamped`: a finite set with a time for each element; `note`, `erase`, `since`.
* `Spaced`: a log in which the same thing comes back only after a while.
* `Remembers`: what the log has is in the set, if it is not too old.
* **`Remembers.note`**: a log stays spaced if only what the set has not is put into it.
-/

namespace ZosCore

/-- A finite set, and when its elements were put in. -/
structure Stamped (α : Type) where
  items : Finset α := ∅
  time : α → ℕ := fun _ => 0

namespace Stamped

variable {α : Type}

instance : Membership α (Stamped α) := ⟨fun s a => a ∈ s.items⟩

instance : EmptyCollection (Stamped α) := ⟨{}⟩

@[simp] lemma not_mem_empty (a : α) : a ∉ (∅ : Stamped α) := Finset.notMem_empty a

/-- What was put in before `t` is forgotten. -/
def since (t : ℕ) (s : Stamped α) : Stamped α :=
  { s with items := s.items.filter (t ≤ s.time ·) }

/-- The number of elements. -/
def size (s : Stamped α) : ℕ := s.items.card

variable {a b : α} {s : Stamped α} {t : ℕ}

@[simp] lemma mem_since : a ∈ s.since t ↔ a ∈ s ∧ t ≤ s.time a := Finset.mem_filter

@[simp] lemma time_since : (s.since t).time = s.time := rfl

@[simp] lemma size_empty : (∅ : Stamped α).size = 0 := rfl

@[simp] lemma items_empty : (∅ : Stamped α).items = ∅ := rfl

section Change

variable [DecidableEq α]

instance (a : α) (s : Stamped α) : Decidable (a ∈ s) := inferInstanceAs (Decidable (a ∈ s.items))

/-- An element is put in, unless it is there: then its time stays. -/
def note (a : α) (t : ℕ) (s : Stamped α) : Stamped α :=
  if a ∈ s then s else ⟨insert a s.items, Function.update s.time a t⟩

/-- An element is taken out. -/
def erase (a : α) (s : Stamped α) : Stamped α := { s with items := s.items.erase a }

@[simp] lemma mem_note : b ∈ s.note a t ↔ b = a ∨ b ∈ s := by
  unfold note
  split_ifs with h
  · exact ⟨.inr, fun hb => hb.elim (· ▸ h) id⟩
  · exact Finset.mem_insert

@[simp] lemma mem_erase : b ∈ s.erase a ↔ b ≠ a ∧ b ∈ s := Finset.mem_erase

@[simp] lemma time_erase : (s.erase a).time = s.time := rfl

lemma time_note_self (h : a ∉ s) : (s.note a t).time a = t := by
  simp [note, h]

lemma time_note_of_mem (h : b ∈ s) : (s.note a t).time b = s.time b := by
  unfold note
  split_ifs with ha
  · rfl
  · exact Function.update_of_ne (fun hba : b = a => ha (hba ▸ h)) t s.time

lemma size_note_le : (s.note a t).size ≤ s.size + 1 := by
  unfold note size
  split_ifs
  · exact Nat.le_succ _
  · exact Finset.card_insert_le _ _

end Change

/-! ### Logs -/

/-- In the log, the last entry first, the same thing comes back only after more than `w`. -/
def Spaced {α : Type} (w : ℕ) (log : List (α × ℕ)) : Prop :=
  log.Pairwise fun later earlier => later.1 = earlier.1 → earlier.2 + w < later.2

/-- What the log has is in the set with its time or a later one, unless it is more than `w` old. -/
structure Remembers (w now : ℕ) (s : Stamped α) (log : List (α × ℕ)) : Prop where
  past : ∀ a t, (a, t) ∈ log → t ≤ now
  known : ∀ a t, (a, t) ∈ log → (a ∈ s ∧ t ≤ s.time a) ∨ t + w < now

namespace Remembers

variable {w now now' : ℕ} {log : List (α × ℕ)}

lemma nil : Remembers w now s [] := ⟨by simp, by simp⟩

/-- Time goes by. -/
lemma later (h : Remembers w now s log) (hle : now ≤ now') : Remembers w now' s log where
  past a t hat := (h.past a t hat).trans hle
  known a t hat := (h.known a t hat).imp_right fun hold => hold.trans_le hle

/-- The set forgets what is more than `w` old. -/
lemma since (h : Remembers w now s log) : Remembers w now (s.since (now - w)) log where
  past := h.past
  known a t hat := by
    rcases h.known a t hat with ⟨ha, ht⟩ | hold
    · by_cases hs : now - w ≤ s.time a
      · exact .inl ⟨mem_since.mpr ⟨ha, hs⟩, ht⟩
      · exact .inr (by omega)
    · exact .inr hold

/-- **Spacing.** What is put into the set and the log at once, as it was not in the set, leaves the
log spaced. -/
theorem note [DecidableEq α] (h : Remembers w now s log) (hlog : Spaced w log) (ha : a ∉ s) :
    Remembers w now (s.note a now) ((a, now) :: log) ∧ Spaced w ((a, now) :: log) := by
  refine ⟨⟨fun b t hbt => ?_, fun b t hbt => ?_⟩, List.pairwise_cons.mpr ⟨?_, hlog⟩⟩
  · rcases List.mem_cons.mp hbt with heq | hbt
    · exact (Prod.mk.inj heq).2.le
    · exact h.past b t hbt
  · rcases List.mem_cons.mp hbt with heq | hbt
    · obtain ⟨rfl, rfl⟩ := Prod.mk.inj heq
      exact .inl ⟨mem_note.mpr (.inl rfl), (time_note_self ha).ge⟩
    · refine (h.known b t hbt).imp_left fun ⟨hb, ht⟩ => ⟨mem_note.mpr (.inr hb), ?_⟩
      rwa [time_note_of_mem hb]
  · rintro ⟨b, t⟩ hbt (rfl : a = b)
    exact (h.known a t hbt).resolve_left fun hknown => ha hknown.1

end Remembers

end Stamped

end ZosCore
