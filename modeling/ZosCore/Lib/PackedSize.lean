import Mathlib.Data.List.Forall2
import ZosCore.Lib.Packing

/-!
The number of bytes that values are packed in, and what it is to lengthen them.

A serialiser that only counts has a rule for each type, as the one that writes the bytes has. Each rule
comes with the changes that are taken for a lengthening: a string is replaced by one that is not
shorter, a list gets more elements, and nothing else happens to the parts. So no value is packed in
fewer bytes after it.

* `PackedSize`: the number of bytes, and the lengthenings, with the fact that they go together.
* `PackedSize.fixed`: the values of a type that are all packed in one number of bytes.
* The instances for numbers, strings, pairs, optional values and lists.
* `PackedSize.reflect`: structures by their fields.
-/

namespace ZosCore

/-- How many bytes a value is packed in, and the values that it is lengthened to. -/
class PackedSize (α : Type) where
  packSize : α → ℕ
  Lengthens : α → α → Prop
  refl : ∀ a, Lengthens a a
  packSize_le : ∀ {a b}, Lengthens a b → packSize a ≤ packSize b

export PackedSize (packSize Lengthens)

namespace PackedSize

variable {α β : Type}

/-- All values are packed in `k` bytes, and none is lengthened to another. -/
@[reducible] def fixed (α : Type) (k : ℕ) : PackedSize α where
  packSize _ := k
  Lengthens a b := a = b
  refl _ := rfl
  packSize_le _ := le_rfl

instance : PackedSize Unit := fixed Unit 0

instance : PackedSize Bool := fixed Bool 1

instance : PackedSize UInt8 := fixed UInt8 1

instance : PackedSize UInt16 := fixed UInt16 2

instance : PackedSize UInt32 := fixed UInt32 4

instance : PackedSize UInt64 := fixed UInt64 8

instance : PackedSize Int64 := fixed Int64 8

/-! ### Numbers of any size -/

/-- The bytes of a number of any size, seven bits in each. -/
def varintSize (n : ℕ) : ℕ := (Packing.varint.pack n).length

lemma varintSize_of_lt {n : ℕ} (h : n < 128) : varintSize n = 1 := by
  change (Packing.groupsOfNumber n).length = 1
  rw [Packing.groupsOfNumber, if_pos h]
  rfl

lemma varintSize_of_le {n : ℕ} (h : 128 ≤ n) : varintSize n = varintSize (n / 128) + 1 := by
  change (Packing.groupsOfNumber n).length = (Packing.groupsOfNumber (n / 128)).length + 1
  rw [Packing.groupsOfNumber, if_neg (not_lt.mpr h)]
  rfl

lemma one_le_varintSize (n : ℕ) : 1 ≤ varintSize n :=
  List.length_pos_of_ne_nil (Packing.varint_pack_ne n)

/-- A larger number is not packed in fewer bytes. -/
lemma varintSize_mono {m n : ℕ} (h : m ≤ n) : varintSize m ≤ varintSize n := by
  induction n using Nat.strong_induction_on generalizing m with
  | _ n ih =>
    by_cases hm : m < 128
    · rw [varintSize_of_lt hm]
      exact one_le_varintSize n
    · rw [varintSize_of_le (not_lt.mp hm), varintSize_of_le ((not_lt.mp hm).trans h)]
      exact Nat.add_le_add_right (ih (n / 128) (by omega) (Nat.div_le_div_right h)) 1

/-- `unsigned_int` -/
instance : PackedSize ℕ where
  packSize := varintSize
  Lengthens a b := a = b
  refl _ := rfl
  packSize_le h := by rw [h]

/-! ### Strings and lists -/

/-- A string, whose characters are its bytes, after its length. -/
instance : PackedSize String where
  packSize s := varintSize s.length + s.length
  Lengthens s t := s.length ≤ t.length
  refl _ := le_rfl
  packSize_le h := Nat.add_le_add (varintSize_mono h) h

/-- What the elements of a list are packed in. -/
lemma sum_packSize_le [PackedSize α] {l l' : List α} (h : List.SublistForall₂ Lengthens l l') :
    (l.map packSize).sum ≤ (l'.map packSize).sum := by
  induction h with
  | nil => exact Nat.zero_le _
  | cons hab _ ih =>
      rw [List.map_cons, List.sum_cons, List.map_cons, List.sum_cons]
      exact Nat.add_le_add (packSize_le hab) ih
  | cons_right _ ih =>
      rw [List.map_cons, List.sum_cons]
      exact Nat.le_add_left_of_le ih

lemma length_le_of_sublistForall₂ {R : α → β → Prop} {l : List α} {l' : List β}
    (h : List.SublistForall₂ R l l') : l.length ≤ l'.length := by
  obtain ⟨k, hforall, hsub⟩ := List.sublistForall₂_iff.mp h
  exact hforall.length_eq.le.trans hsub.length_le

/-- A list, after its length. Its elements may be lengthened, and others may come to them. -/
instance [PackedSize α] : PackedSize (List α) where
  packSize l := varintSize l.length + (l.map packSize).sum
  Lengthens := List.SublistForall₂ Lengthens
  refl l := by
    induction l with
    | nil => exact .nil
    | cons a l ih => exact .cons (PackedSize.refl a) ih
  packSize_le h := Nat.add_le_add (varintSize_mono (length_le_of_sublistForall₂ h))
    (sum_packSize_le h)

/-! ### Parts -/

/-- One after the other. -/
instance [PackedSize α] [PackedSize β] : PackedSize (α × β) where
  packSize a := packSize a.1 + packSize a.2
  Lengthens a b := Lengthens a.1 b.1 ∧ Lengthens a.2 b.2
  refl a := ⟨PackedSize.refl a.1, PackedSize.refl a.2⟩
  packSize_le h := Nat.add_le_add (packSize_le h.1) (packSize_le h.2)

/-- An optional value, after the truth value that says whether it is there. -/
instance [PackedSize α] : PackedSize (Option α) where
  packSize
    | none => 1
    | some a => 1 + packSize a
  Lengthens
    | none, none => True
    | some a, some b => Lengthens a b
    | _, _ => False
  refl
    | none => trivial
    | some a => PackedSize.refl a
  packSize_le := by
    intro a b h
    cases a with
    | none =>
        cases b with
        | none => exact le_rfl
        | some _ => exact h.elim
    | some a =>
        cases b with
        | none => exact h.elim
        | some b => exact Nat.add_le_add_left (packSize_le h) 1

/-- A structure by its fields. -/
@[reducible] def reflect [PackedSize β] (fields : α → β) : PackedSize α where
  packSize a := packSize (fields a)
  Lengthens a b := Lengthens (fields a) (fields b)
  refl a := PackedSize.refl (fields a)
  packSize_le h := packSize_le h

end PackedSize

end ZosCore
