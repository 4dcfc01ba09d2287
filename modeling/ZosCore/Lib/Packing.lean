import Mathlib.Tactic

/-!
Packed values: bytes from which a value can be read back, and from a part of which nothing can be
read.

A field that is left out when a structure is packed is lost, so what is read back may be another value
than what was packed.

* `Packing`: how values are packed and unpacked, and what is left of them. `Exact`: a value is read
  back as it was.
* `Packing.number`, `Packing.varint`, `Packing.bool`: numbers of a fixed size and of any size, and
  truth values.
* `Packing.prod`, `Packing.optional`, `Packing.list`, `Packing.reflect`: pairs, optional values, lists,
  and structures by their fields.
-/

namespace ZosCore

/-- How values are packed: what is packed is read back, without what was packed after it, as
`restored` says; and nothing is read from a part of it. -/
structure Packing (α : Type) where
  pack : α → List UInt8
  unpack : List UInt8 → Option (α × List UInt8)
  restored : α → α
  unpack_pack : ∀ a rest, unpack (pack a ++ rest) = some (restored a, rest)
  unpack_cut : ∀ a p, p <+: pack a → p ≠ pack a → unpack p = none

namespace Packing

variable {α β : Type}

/-- The value is read back as it was. -/
def Exact (P : Packing α) (a : α) : Prop := P.restored a = a

/-! ### Parts of two lists -/

/-- A beginning of two lists is one of the first, or goes into the second. -/
lemma prefix_append_cases {γ : Type} {p l l' : List γ} (h : p <+: l ++ l') :
    (p <+: l ∧ p ≠ l) ∨ ∃ q, p = l ++ q ∧ q <+: l' := by
  obtain ⟨r, hr⟩ := h
  rcases List.append_eq_append_iff.mp hr with ⟨x, hl, -⟩ | ⟨x, hp, hx⟩
  · by_cases hempty : x = []
    · subst hempty
      exact .inr ⟨[], by simpa using hl.symm, List.nil_prefix⟩
    · refine .inl ⟨⟨x, hl.symm⟩, fun heq => hempty ?_⟩
      rw [heq] at hl
      simpa using hl
  · exact .inr ⟨x, hp, ⟨r, hx.symm⟩⟩

/-! ### Numbers -/

/-- The lowest bytes of a number, the lowest one first. -/
def bytesOfNumber : ℕ → ℕ → List UInt8
  | 0, _ => []
  | k + 1, n => .ofNat (n % 256) :: bytesOfNumber k (n / 256)

/-- So many bytes as a number. -/
def numberOfBytes : ℕ → List UInt8 → Option (ℕ × List UInt8)
  | 0, l => some (0, l)
  | _ + 1, [] => none
  | k + 1, b :: l => (numberOfBytes k l).map fun r => (b.toNat + 256 * r.1, r.2)

lemma numberOfBytes_bytesOfNumber (k n : ℕ) (rest : List UInt8) :
    numberOfBytes k (bytesOfNumber k n ++ rest) = some (n % 256 ^ k, rest) := by
  induction k generalizing n with
  | zero => simp [bytesOfNumber, numberOfBytes, Nat.mod_one]
  | succ k ih =>
      have hbyte : (UInt8.ofNat (n % 256)).toNat = n % 256 := by
        rw [UInt8.toNat_ofNat']
        omega
      rw [bytesOfNumber, List.cons_append, numberOfBytes, ih, Option.map_some, hbyte, pow_succ',
        Nat.mod_mul]

lemma numberOfBytes_cut (k n : ℕ) {p : List UInt8} (h : p <+: bytesOfNumber k n)
    (hne : p ≠ bytesOfNumber k n) : numberOfBytes k p = none := by
  induction k generalizing n p with
  | zero => exact absurd (List.prefix_nil.mp h) hne
  | succ k ih =>
      cases p with
      | nil => rfl
      | cons b p =>
          rw [bytesOfNumber] at h hne
          obtain ⟨rfl, hp⟩ := List.cons_prefix_cons.mp h
          rw [numberOfBytes, ih (n / 256) hp fun heq => hne (by rw [heq])]
          rfl

/-- A number of `k` bytes. -/
def number (k : ℕ) : Packing ℕ where
  pack := bytesOfNumber k
  unpack := numberOfBytes k
  restored n := n % 256 ^ k
  unpack_pack := numberOfBytes_bytesOfNumber k
  unpack_cut n _ := numberOfBytes_cut k n

/-- Seven bits of a number in each byte, the lowest first; all bytes but the last have the highest bit
set. -/
def groupsOfNumber (n : ℕ) : List UInt8 :=
  if n < 128 then [.ofNat n] else .ofNat (n % 128 + 128) :: groupsOfNumber (n / 128)

/-- The number of these bytes. -/
def numberOfGroups : List UInt8 → Option (ℕ × List UInt8)
  | [] => none
  | b :: l =>
      if b.toNat < 128 then some (b.toNat, l)
      else (numberOfGroups l).map fun r => (b.toNat % 128 + 128 * r.1, r.2)

lemma toNat_lastGroup {n : ℕ} (h : n < 128) : (UInt8.ofNat n).toNat = n := by
  rw [UInt8.toNat_ofNat']
  omega

lemma toNat_group (n : ℕ) : (UInt8.ofNat (n % 128 + 128)).toNat = n % 128 + 128 := by
  rw [UInt8.toNat_ofNat']
  omega

lemma numberOfGroups_groupsOfNumber (n : ℕ) (rest : List UInt8) :
    numberOfGroups (groupsOfNumber n ++ rest) = some (n, rest) := by
  induction n using groupsOfNumber.induct with
  | case1 n h =>
      rw [groupsOfNumber, if_pos h, List.singleton_append, numberOfGroups, toNat_lastGroup h, if_pos h]
  | case2 n h ih =>
      rw [groupsOfNumber, if_neg h, List.cons_append, numberOfGroups, toNat_group,
        if_neg (by omega), ih, Option.map_some]
      congr 2
      dsimp only
      omega

lemma numberOfGroups_cut (n : ℕ) {p : List UInt8} (h : p <+: groupsOfNumber n)
    (hne : p ≠ groupsOfNumber n) : numberOfGroups p = none := by
  induction n using groupsOfNumber.induct generalizing p with
  | case1 n hn =>
      rw [groupsOfNumber, if_pos hn] at h hne
      cases p with
      | nil => rfl
      | cons b p =>
          obtain ⟨rfl, hp⟩ := List.cons_prefix_cons.mp h
          exact absurd (by rw [List.prefix_nil.mp hp]) hne
  | case2 n hn ih =>
      rw [groupsOfNumber, if_neg hn] at h hne
      cases p with
      | nil => rfl
      | cons b p =>
          obtain ⟨rfl, hp⟩ := List.cons_prefix_cons.mp h
          rw [numberOfGroups, toNat_group, if_neg (by omega), ih hp fun heq => hne (by rw [heq])]
          rfl

/-- A number of any size. -/
def varint : Packing ℕ where
  pack := groupsOfNumber
  unpack := numberOfGroups
  restored n := n
  unpack_pack := numberOfGroups_groupsOfNumber
  unpack_cut n _ := numberOfGroups_cut n

lemma varint_pack_ne (n : ℕ) : varint.pack n ≠ [] := by
  change groupsOfNumber n ≠ []
  rw [groupsOfNumber]
  split <;> exact List.cons_ne_nil _ _

/-- A truth value, in a byte. -/
def bool : Packing Bool where
  pack b := [if b then 1 else 0]
  unpack
    | [] => none
    | b :: l => if b = 0 then some (false, l) else if b = 1 then some (true, l) else none
  restored b := b
  unpack_pack b rest := by cases b <;> rfl
  unpack_cut b p h hne := by
    cases p with
    | nil => rfl
    | cons x p =>
        obtain ⟨rfl, hp⟩ := List.cons_prefix_cons.mp h
        exact absurd (by rw [List.prefix_nil.mp hp]) hne

/-! ### Structures -/

/-- A structure by what is reflected of it: `get` reads the fields, and `set` puts them into a new
one. -/
def reflect (P : Packing β) (get : α → β) (set : β → α) : Packing α where
  pack a := P.pack (get a)
  unpack l := (P.unpack l).map fun r => (set r.1, r.2)
  restored a := set (P.restored (get a))
  unpack_pack a rest := by rw [P.unpack_pack, Option.map_some]
  unpack_cut a p h hne := by rw [P.unpack_cut (get a) p h hne, Option.map_none]

/-- One after the other. -/
def prod (P : Packing α) (Q : Packing β) : Packing (α × β) where
  pack a := P.pack a.1 ++ Q.pack a.2
  unpack l := (P.unpack l).bind fun r => (Q.unpack r.2).map fun r' => ((r.1, r'.1), r'.2)
  restored a := (P.restored a.1, Q.restored a.2)
  unpack_pack a rest := by
    rw [List.append_assoc, P.unpack_pack, Option.bind_some, Q.unpack_pack, Option.map_some]
  unpack_cut a p h hne := by
    rcases prefix_append_cases h with ⟨hp, hne⟩ | ⟨q, rfl, hq⟩
    · rw [P.unpack_cut a.1 p hp hne, Option.bind_none]
    · rw [P.unpack_pack, Option.bind_some, Q.unpack_cut a.2 q hq fun heq => hne (by rw [heq]),
        Option.map_none]

/-- An optional value, after the truth value that says whether it is there. -/
def optional (P : Packing α) : Packing (Option α) where
  pack
    | none => bool.pack false
    | some a => bool.pack true ++ P.pack a
  unpack l := (bool.unpack l).bind fun r =>
    if r.1 then (P.unpack r.2).map fun r' => (some r'.1, r'.2) else some (none, r.2)
  restored := Option.map P.restored
  unpack_pack
    | none, rest => by rw [bool.unpack_pack]; rfl
    | some a, rest => by
        rw [List.append_assoc, bool.unpack_pack, Option.bind_some, P.unpack_pack]
        rfl
  unpack_cut
    | none, p, h, hne => by rw [bool.unpack_cut false p h hne, Option.bind_none]
    | some a, p, h, hne => by
        rcases prefix_append_cases h with ⟨hp, hne⟩ | ⟨q, rfl, hq⟩
        · rw [bool.unpack_cut true p hp hne, Option.bind_none]
        · rw [bool.unpack_pack, Option.bind_some, P.unpack_cut a q hq fun heq => hne (by rw [heq])]
          rfl

/-- So many values, one after the other. -/
def unpackItems (P : Packing α) : ℕ → List UInt8 → Option (List α × List UInt8)
  | 0, l => some ([], l)
  | n + 1, l => (P.unpack l).bind fun r => (P.unpackItems n r.2).map fun r' => (r.1 :: r'.1, r'.2)

lemma unpackItems_flatMap (P : Packing α) (as : List α) (rest : List UInt8) :
    P.unpackItems as.length (as.flatMap P.pack ++ rest) = some (as.map P.restored, rest) := by
  induction as with
  | nil => rfl
  | cons a as ih =>
      rw [List.length_cons, List.flatMap_cons, List.append_assoc, unpackItems, P.unpack_pack,
        Option.bind_some, ih, Option.map_some, List.map_cons]

lemma unpackItems_cut (P : Packing α) (as : List α) {p : List UInt8} (h : p <+: as.flatMap P.pack)
    (hne : p ≠ as.flatMap P.pack) : P.unpackItems as.length p = none := by
  induction as generalizing p with
  | nil => exact absurd (List.prefix_nil.mp h) hne
  | cons a as ih =>
      rw [List.flatMap_cons] at h hne
      rw [List.length_cons, unpackItems]
      rcases prefix_append_cases h with ⟨hp, hne⟩ | ⟨q, rfl, hq⟩
      · rw [P.unpack_cut a p hp hne, Option.bind_none]
      · rw [P.unpack_pack, Option.bind_some, ih hq fun heq => hne (by rw [heq]), Option.map_none]

/-- A list, after its length. -/
def list (P : Packing α) : Packing (List α) where
  pack as := varint.pack as.length ++ as.flatMap P.pack
  unpack l := (varint.unpack l).bind fun r => P.unpackItems r.1 r.2
  restored := List.map P.restored
  unpack_pack as rest := by
    rw [List.append_assoc, varint.unpack_pack, Option.bind_some]
    exact P.unpackItems_flatMap as rest
  unpack_cut as p h hne := by
    rcases prefix_append_cases h with ⟨hp, hne⟩ | ⟨q, rfl, hq⟩
    · rw [varint.unpack_cut as.length p hp hne, Option.bind_none]
    · rw [varint.unpack_pack, Option.bind_some]
      exact P.unpackItems_cut as hq fun heq => hne (congrArg (varint.pack as.length ++ ·) heq)

/-! ### Numbers of the machine -/

def uint8 : Packing UInt8 := (number 1).reflect UInt8.toNat UInt8.ofNat

def uint16 : Packing UInt16 := (number 2).reflect UInt16.toNat UInt16.ofNat

def uint32 : Packing UInt32 := (number 4).reflect UInt32.toNat UInt32.ofNat

def uint64 : Packing UInt64 := (number 8).reflect UInt64.toNat UInt64.ofNat

def int64 : Packing Int64 := uint64.reflect Int64.toUInt64 UInt64.toInt64

variable {P : Packing α} {Q : Packing β}

lemma length_bytesOfNumber (k n : ℕ) : (bytesOfNumber k n).length = k := by
  induction k generalizing n with
  | zero => rfl
  | succ k ih => rw [bytesOfNumber, List.length_cons, ih]

@[simp] lemma length_pack_number (k n : ℕ) : ((number k).pack n).length = k := length_bytesOfNumber k n

@[simp] lemma length_pack_bool (b : Bool) : (bool.pack b).length = 1 := rfl

@[simp] lemma length_pack_prod (a : α × β) :
    ((P.prod Q).pack a).length = (P.pack a.1).length + (Q.pack a.2).length := List.length_append

@[simp] lemma pack_reflect (get : α → β) (set : β → α) (a : α) :
    (Q.reflect get set).pack a = Q.pack (get a) := rfl

@[simp] lemma length_pack_optional_none : (P.optional.pack none).length = 1 := rfl

@[simp] lemma restored_uint8 (n : UInt8) : uint8.restored n = n := by
  change UInt8.ofNat (n.toNat % 256 ^ 1) = n
  rw [Nat.mod_eq_of_lt (by have := n.toNat_lt; omega), UInt8.ofNat_toNat]

@[simp] lemma restored_uint16 (n : UInt16) : uint16.restored n = n := by
  change UInt16.ofNat (n.toNat % 256 ^ 2) = n
  rw [Nat.mod_eq_of_lt (by have := n.toNat_lt; omega), UInt16.ofNat_toNat]

@[simp] lemma restored_uint32 (n : UInt32) : uint32.restored n = n := by
  change UInt32.ofNat (n.toNat % 256 ^ 4) = n
  rw [Nat.mod_eq_of_lt (by have := n.toNat_lt; omega), UInt32.ofNat_toNat]

@[simp] lemma restored_uint64 (n : UInt64) : uint64.restored n = n := by
  change UInt64.ofNat (n.toNat % 256 ^ 8) = n
  rw [Nat.mod_eq_of_lt (by have := n.toNat_lt; omega), UInt64.ofNat_toNat]

@[simp] lemma restored_int64 (n : Int64) : int64.restored n = n := by
  change (uint64.restored n.toUInt64).toInt64 = n
  rw [restored_uint64, Int64.toInt64_toUInt64]

@[simp] lemma restored_list (as : List α) : P.list.restored as = as.map P.restored := rfl

lemma Exact.list {as : List α} (h : ∀ a ∈ as, P.Exact a) : P.list.Exact as :=
  (List.map_congr_left h).trans (List.map_id as)

@[simp] lemma restored_varint (n : ℕ) : varint.restored n = n := rfl

@[simp] lemma restored_prod (a : α) (b : β) :
    (P.prod Q).restored (a, b) = (P.restored a, Q.restored b) := rfl

@[simp] lemma restored_optional (a : Option α) : P.optional.restored a = a.map P.restored := rfl

@[simp] lemma restored_reflect (get : α → β) (set : β → α) (a : α) :
    (Q.reflect get set).restored a = set (Q.restored (get a)) := rfl

@[simp] lemma restored_number (k n : ℕ) : (number k).restored n = n % 256 ^ k := rfl

@[simp] lemma restored_bool (b : Bool) : bool.restored b = b := rfl

end Packing

end ZosCore
