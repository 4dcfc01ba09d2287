import Mathlib.Data.ZMod.Basic
import Mathlib.Tactic

/-!
`fc/uint128.hpp`, `uint128.cpp`: 128-bit numbers of two words.

* `UInt128`, and its operators under the names of the operations.
* `toNat_add`, `toNat_shl`, `toNat_mul`, ...: each operation on the numbers.
* **`uint128_arithmetic`**: they are the operations modulo `2 ^ 128`.
-/

namespace ZosCore

/-- `fc::uint128` -/
@[ext] structure UInt128 where
  hi : UInt64
  lo : UInt64
  deriving DecidableEq

namespace UInt128

/-- The number that the two words stand for. -/
def toNat (a : UInt128) : ℕ := a.hi.toNat * 2 ^ 64 + a.lo.toNat

/-- `uint128( uint64_t )` -/
def ofUInt64 (l : UInt64) : UInt128 := ⟨0, l⟩

/-- `operator <` -/
def lt (a b : UInt128) : Bool := if a.hi = b.hi then a.lo < b.lo else a.hi < b.hi

/-- `operator >=` -/
def ge (a b : UInt128) : Bool := a = b || b.lt a

/-- `operator ~` -/
def complement (a : UInt128) : UInt128 := ⟨~~~a.hi, ~~~a.lo⟩

/-- `operator++` -/
def increment (a : UInt128) : UInt128 :=
  let lo := a.lo + 1
  ⟨a.hi + (if lo = 0 then 1 else 0), lo⟩

/-- `operator -` of one number. -/
def neg (a : UInt128) : UInt128 := a.complement.increment

/-- `operator +=` -/
def add (a b : UInt128) : UInt128 :=
  let old := a.lo
  let lo := a.lo + b.lo
  ⟨a.hi + (b.hi + (if lo < old then 1 else 0)), lo⟩

/-- `operator -=` -/
def sub (a b : UInt128) : UInt128 := a.add b.neg

/-- `(uint32_t) x` -/
def low32 (x : UInt64) : UInt64 := x.toUInt32.toUInt64

/-- `to_integer`, of a number that fits. -/
def toInteger (a : UInt128) : UInt64 := low32 a.lo

/-- The part of `operator<<=` for a shift of less than a word. -/
def shlWord (a : UInt128) (n : UInt64) : UInt128 :=
  if n ≠ 0 then
    let mask := ~~~(~~~(0 : UInt64) >>> n)
    ⟨a.hi <<< n ||| (a.lo &&& mask) >>> (64 - n), a.lo <<< n⟩
  else a

/-- `operator<<=` -/
def shl (a n : UInt128) : UInt128 :=
  if n.ge (ofUInt64 128) then ⟨0, 0⟩
  else if 64 ≤ n.toInteger then shlWord ⟨a.lo, 0⟩ (n.toInteger - 64)
  else shlWord a n.toInteger

/-- The part of `operator>>=` for a shift of less than a word. -/
def shrWord (a : UInt128) (n : UInt64) : UInt128 :=
  if n ≠ 0 then
    let mask := ~~~(~~~(0 : UInt64) <<< n)
    ⟨a.hi >>> n, a.lo >>> n ||| (a.hi &&& mask) <<< (64 - n)⟩
  else a

/-- `operator>>=` -/
def shr (a n : UInt128) : UInt128 :=
  if n.ge (ofUInt64 128) then ⟨0, 0⟩
  else if 64 ≤ n.toInteger then shrWord ⟨0, a.hi⟩ (n.toInteger - 64)
  else shrWord a n.toInteger

/-- `operator*=` -/
def mul (a b : UInt128) : UInt128 :=
  let a0 := low32 a.lo
  let a1 := low32 (a.lo >>> 0x20)
  let a2 := low32 a.hi
  let a3 := low32 (a.hi >>> 0x20)
  let b0 := low32 b.lo
  let b1 := low32 (b.lo >>> 0x20)
  let b2 := low32 b.hi
  let b3 := low32 (b.hi >>> 0x20)
  let r := ofUInt64 (a3 * b0)
  let r := ((r.add (ofUInt64 (a2 * b1))).add (ofUInt64 (a1 * b2))).add (ofUInt64 (a0 * b3))
  let r := r.shl (ofUInt64 0x20)
  let r := ((r.add (ofUInt64 (a2 * b0))).add (ofUInt64 (a1 * b1))).add (ofUInt64 (a0 * b2))
  let r := r.shl (ofUInt64 0x20)
  let r := (r.add (ofUInt64 (a1 * b0))).add (ofUInt64 (a0 * b1))
  let r := r.shl (ofUInt64 0x20)
  r.add (ofUInt64 (a0 * b0))

/-! ### The numbers -/

variable {a b : UInt128}

lemma toNat_lt (a : UInt128) : a.toNat < 2 ^ 128 := by
  have hhi := a.hi.toNat_lt
  have hlo := a.lo.toNat_lt
  rw [toNat]
  omega

lemma toNat_injective (h : a.toNat = b.toNat) : a = b := by
  have ha := a.lo.toNat_lt
  have hb := b.lo.toNat_lt
  rw [toNat, toNat] at h
  refine UInt128.ext (UInt64.toNat_inj.mp ?_) (UInt64.toNat_inj.mp ?_) <;> omega

@[simp] lemma toNat_mk (hi lo : UInt64) : toNat ⟨hi, lo⟩ = hi.toNat * 2 ^ 64 + lo.toNat := rfl

@[simp] lemma toNat_ofUInt64 (l : UInt64) : (ofUInt64 l).toNat = l.toNat := by
  simp [ofUInt64]

lemma lt_iff : a.lt b = true ↔ a.toNat < b.toNat := by
  have ha := a.lo.toNat_lt
  have hb := b.lo.toNat_lt
  rw [lt, toNat, toNat]
  split_ifs with h
  · rw [decide_eq_true_iff, UInt64.lt_iff_toNat_lt, h]
    omega
  · have hne : a.hi.toNat ≠ b.hi.toNat := fun heq => h (UInt64.toNat_inj.mp heq)
    rw [decide_eq_true_iff, UInt64.lt_iff_toNat_lt]
    omega

lemma ge_iff : a.ge b = true ↔ b.toNat ≤ a.toNat := by
  rw [ge, Bool.or_eq_true, decide_eq_true_iff, lt_iff]
  constructor
  · rintro (rfl | hlt)
    · exact le_rfl
    · exact hlt.le
  · exact fun hle => hle.eq_or_lt.imp_left fun heq => (toNat_injective heq).symm

lemma toNat_low32 (x : UInt64) : (low32 x).toNat = x.toNat % 2 ^ 32 := by
  simp [low32]

lemma toNat_toInteger {k : ℕ} (h : a.toNat < k) (hk : k ≤ 2 ^ 32) :
    a.toInteger.toNat = a.toNat := by
  rw [toInteger, toNat_low32]
  rw [toNat] at h ⊢
  omega

lemma toNat_add (a b : UInt128) : (a.add b).toNat = (a.toNat + b.toNat) % 2 ^ 128 := by
  have ha := a.lo.toNat_lt
  have hb := b.lo.toNat_lt
  have hah := a.hi.toNat_lt
  have hbh := b.hi.toNat_lt
  -- the low word wraps exactly if there is a carry
  have hcarry : a.lo + b.lo < a.lo ↔ 2 ^ 64 ≤ a.lo.toNat + b.lo.toNat := by
    rw [UInt64.lt_iff_toNat_lt, UInt64.toNat_add]
    omega
  simp only [add, hcarry, toNat, UInt64.toNat_add]
  split_ifs with h <;> simp only [UInt64.reduceToNat] <;> omega

lemma toNat_complement (a : UInt128) : a.complement.toNat = 2 ^ 128 - 1 - a.toNat := by
  have hlo := a.lo.toNat_lt
  have hhi := a.hi.toNat_lt
  simp only [complement, toNat, UInt64.toNat_not, UInt64.size]
  omega

lemma toNat_increment (a : UInt128) : a.increment.toNat = (a.toNat + 1) % 2 ^ 128 := by
  have hlo := a.lo.toNat_lt
  have hhi := a.hi.toNat_lt
  have hzero : a.lo + 1 = 0 ↔ a.lo.toNat = 2 ^ 64 - 1 := by
    rw [← UInt64.toNat_inj, UInt64.toNat_add]
    simp only [UInt64.reduceToNat]
    omega
  simp only [increment, hzero, toNat, UInt64.toNat_add, UInt64.reduceToNat]
  split_ifs with h <;> simp only [UInt64.reduceToNat] <;> omega

lemma toNat_neg (a : UInt128) : a.neg.toNat = (2 ^ 128 - a.toNat) % 2 ^ 128 := by
  have ha := a.toNat_lt
  rw [neg, toNat_increment, toNat_complement]
  congr 1
  omega

lemma toNat_sub (a b : UInt128) : (a.sub b).toNat = (a.toNat + (2 ^ 128 - b.toNat)) % 2 ^ 128 := by
  rw [sub, toNat_add, toNat_neg, Nat.add_mod_mod]

/-! ### Shifts -/

section

variable {n : UInt64} {k : ℕ}

/-- The words as bits. -/
def bits (a : UInt128) : BitVec 128 := a.hi.toBitVec ++ a.lo.toBitVec

lemma toNat_bits (a : UInt128) : a.bits.toNat = a.toNat := by
  rw [bits, BitVec.toNat_append, UInt64.toNat_toBitVec, UInt64.toNat_toBitVec,
    ← Nat.shiftLeft_add_eq_or_of_lt a.lo.toNat_lt, Nat.shiftLeft_eq, toNat]

/-- The shift the other way, by which the bits get from one word to the other. -/
lemma toNat_sub_mod (hn : n.toNat < 64) (h : n ≠ 0) : 0 < n.toNat ∧ (64 - n).toNat % 64 = 64 - n.toNat := by
  have h0 : 0 < n.toNat := Nat.pos_of_ne_zero fun hzero => h (UInt64.toNat_inj.mp hzero)
  rw [UInt64.toNat_sub_of_le _ _ (UInt64.le_iff_toNat_le.mpr hn.le)]
  exact ⟨h0, Nat.mod_eq_of_lt (by simp; omega)⟩

lemma bits_shlWord (a : UInt128) (hn : n.toNat < 64) : (a.shlWord n).bits = a.bits <<< n.toNat := by
  rw [shlWord]
  split_ifs with h
  swap
  · rw [not_not.mp h]
    simp
  obtain ⟨h0, hsub⟩ := toNat_sub_mod hn h
  refine BitVec.eq_of_getLsbD_eq fun i hi => ?_
  simp only [bits, BitVec.getLsbD_append, UInt64.toBitVec_or, UInt64.toBitVec_and, UInt64.toBitVec_not,
    UInt64.toBitVec_shiftLeft, UInt64.toBitVec_shiftRight, BitVec.getLsbD_or, BitVec.getLsbD_and,
    BitVec.getLsbD_not, BitVec.getLsbD_shiftLeft, BitVec.getLsbD_ushiftRight, BitVec.shiftLeft_eq',
    BitVec.ushiftRight_eq', BitVec.toNat_umod, UInt64.toNat_toBitVec, BitVec.reduceToNat, hsub,
    Nat.mod_eq_of_lt hn]
  have hcross : 64 ≤ i → 64 - n.toNat + (i - 64) = i - n.toNat ∧ ¬ n.toNat + (i - n.toNat) < 64 := by omega
  rcases lt_or_ge i 64 with h64 | h64
  · have hlow : i - n.toNat < 64 := by omega
    simp [h64, hi, hlow]
  · rw [(hcross h64).1]
    rcases lt_or_ge (i - n.toNat) 64 with hlow | hhigh
    · have hin : i - 64 < n.toNat ∧ n.toNat ≤ i := by omega
      simp [h64.not_gt, hi, hlow, hin.1, hin.2.not_gt, (hcross h64).2]
    · have hout : ¬ i - 64 < n.toNat ∧ n.toNat ≤ i ∧ i - 64 < 64 := by omega
      simp [h64.not_gt, hi, hhigh.not_gt, hout.1, hout.2.1.not_gt, hout.2.2, Nat.sub_right_comm]

lemma bits_shrWord (a : UInt128) (hn : n.toNat < 64) : (a.shrWord n).bits = a.bits >>> n.toNat := by
  rw [shrWord]
  split_ifs with h
  swap
  · rw [not_not.mp h]
    simp
  obtain ⟨h0, hsub⟩ := toNat_sub_mod hn h
  refine BitVec.eq_of_getLsbD_eq fun i hi => ?_
  simp only [bits, BitVec.getLsbD_append, UInt64.toBitVec_or, UInt64.toBitVec_and, UInt64.toBitVec_not,
    UInt64.toBitVec_shiftLeft, UInt64.toBitVec_shiftRight, BitVec.getLsbD_or, BitVec.getLsbD_and,
    BitVec.getLsbD_not, BitVec.getLsbD_shiftLeft, BitVec.getLsbD_ushiftRight, BitVec.shiftLeft_eq',
    BitVec.ushiftRight_eq', BitVec.toNat_umod, UInt64.toNat_toBitVec, BitVec.reduceToNat, hsub,
    Nat.mod_eq_of_lt hn]
  rcases lt_or_ge i 64 with h64 | h64
  · rcases lt_or_ge (n.toNat + i) 64 with hlow | hhigh
    · have hin : i < 64 - n.toNat := by omega
      simp [h64, hlow, hin]
    · have hout : ¬ i < 64 - n.toNat ∧ i - (64 - n.toNat) = n.toNat + i - 64 ∧ n.toNat + i - 64 < n.toNat ∧
        n.toNat + i - 64 < 64 := by omega
      simp [h64, hhigh.not_gt, hout, BitVec.getLsbD_of_ge _ _ hhigh]
  · have hout : ¬ n.toNat + i < 64 ∧ n.toNat + (i - 64) = n.toNat + i - 64 := by omega
    simp [h64.not_gt, hout]

lemma toNat_toInteger_of_not_ge {m : UInt128} (h : ¬ m.ge (ofUInt64 128) = true) :
    m.toInteger.toNat = m.toNat :=
  toNat_toInteger (not_le.mp (ge_iff.not.mp h)) (by decide)

/-- A shift by a whole word, and the rest of it. -/
lemma toNat_sub_word {m : UInt128} (hall : ¬ m.ge (ofUInt64 128) = true)
    (h : (64 : UInt64) ≤ m.toInteger) :
    m.toNat = 64 + (m.toInteger - 64).toNat ∧ (m.toInteger - 64).toNat < 64 := by
  have hm := toNat_toInteger_of_not_ge hall
  have hlt : m.toNat < 128 := not_le.mp (ge_iff.not.mp hall)
  have hle : 64 ≤ m.toInteger.toNat := UInt64.le_iff_toNat_le.mp h
  have hsub : (m.toInteger - 64).toNat = m.toInteger.toNat - 64 := UInt64.toNat_sub_of_le _ _ h
  omega

lemma bits_shl (a n : UInt128) : (a.shl n).bits = a.bits <<< n.toNat := by
  rw [shl]
  split_ifs with hall hword
  · have h128 : 128 ≤ n.toNat := ge_iff.mp hall
    rw [BitVec.shiftLeft_eq_zero h128]
    rfl
  · obtain ⟨hsub, hlt⟩ := toNat_sub_word hall hword
    have hlow : bits ⟨a.lo, 0⟩ = a.bits <<< 64 := by
      refine BitVec.eq_of_getLsbD_eq fun i hi => ?_
      simp only [bits, BitVec.getLsbD_append, BitVec.getLsbD_shiftLeft]
      rcases lt_or_ge i 64 with h | h
      · simp [h]
      · have hword : i - 64 < 64 := by omega
        simp [h.not_gt, hi, hword]
    rw [bits_shlWord _ hlt, hlow, ← BitVec.shiftLeft_add, ← hsub]
  · have hlt : n.toInteger.toNat < 64 := not_le.mp (UInt64.le_iff_toNat_le.not.mp hword)
    rw [bits_shlWord a hlt, toNat_toInteger_of_not_ge hall]

lemma bits_shr (a n : UInt128) : (a.shr n).bits = a.bits >>> n.toNat := by
  rw [shr]
  split_ifs with hall hword
  · have h128 : 128 ≤ n.toNat := ge_iff.mp hall
    rw [BitVec.ushiftRight_eq_zero h128]
    rfl
  · obtain ⟨hsub, hlt⟩ := toNat_sub_word hall hword
    have hhigh : bits ⟨0, a.hi⟩ = a.bits >>> 64 := by
      refine BitVec.eq_of_getLsbD_eq fun i hi => ?_
      have hword : ¬ 64 + i < 64 ∧ 64 + i - 64 = i := by omega
      simp only [bits, BitVec.getLsbD_append, BitVec.getLsbD_ushiftRight]
      rw [if_neg hword.1, hword.2]
      split_ifs with h
      · rfl
      · rw [BitVec.getLsbD_of_ge _ _ (not_lt.mp h)]
        simp
    rw [bits_shrWord _ hlt, hhigh, ← BitVec.shiftRight_add, ← hsub]
  · have hlt : n.toInteger.toNat < 64 := not_le.mp (UInt64.le_iff_toNat_le.not.mp hword)
    rw [bits_shrWord a hlt, toNat_toInteger_of_not_ge hall]

/-- **`operator<<=`.** -/
lemma toNat_shl (a : UInt128) {n : UInt128} (hn : n.toNat = k) :
    (a.shl n).toNat = a.toNat * 2 ^ k % 2 ^ 128 := by
  rw [← toNat_bits, bits_shl, BitVec.toNat_shiftLeft, toNat_bits, Nat.shiftLeft_eq, hn]

/-- **`operator>>=`.** -/
lemma toNat_shr (a : UInt128) {n : UInt128} (hn : n.toNat = k) : (a.shr n).toNat = a.toNat / 2 ^ k := by
  rw [← toNat_bits, bits_shr, BitVec.toNat_ushiftRight, toNat_bits, Nat.shiftRight_eq_div_pow, hn]

end

/-! ### Products -/

lemma toNat_high32 (x : UInt64) : (low32 (x >>> 0x20)).toNat = x.toNat / 2 ^ 32 := by
  have hx := x.toNat_lt
  rw [toNat_low32, UInt64.toNat_shiftRight, Nat.shiftRight_eq_div_pow, Nat.mod_eq_of_lt]
  · rfl
  · simp only [UInt64.reduceToNat, Nat.reduceMod]
    omega

/-- The product of two numbers of 32 bits fits into a word. -/
lemma toNat_mul_of_lt {x y : UInt64} (hx : x.toNat < 2 ^ 32) (hy : y.toNat < 2 ^ 32) :
    (x * y).toNat = x.toNat * y.toNat := by
  rw [UInt64.toNat_mul, Nat.mod_eq_of_lt]
  calc x.toNat * y.toNat < 2 ^ 32 * 2 ^ 32 := Nat.mul_lt_mul'' hx hy
    _ = 2 ^ 64 := by norm_num

/-- The cross terms that `operator*=` adds up: the others are multiples of `2 ^ 128`. -/
lemma limbs_mul {R : Type*} [CommRing R] (h : (2 : R) ^ 128 = 0) (a0 a1 a2 a3 b0 b1 b2 b3 : R) :
    (((a3 * b0 + a2 * b1 + a1 * b2 + a0 * b3) * 2 ^ 32 + a2 * b0 + a1 * b1 + a0 * b2) * 2 ^ 32 +
      a1 * b0 + a0 * b1) * 2 ^ 32 + a0 * b0 =
    (a0 + a1 * 2 ^ 32 + a2 * 2 ^ 64 + a3 * 2 ^ 96) * (b0 + b1 * 2 ^ 32 + b2 * 2 ^ 64 + b3 * 2 ^ 96) := by
  linear_combination (-(a1 * b3 + a2 * b2 + a3 * b1 + 2 ^ 32 * (a2 * b3 + a3 * b2) +
    2 ^ 64 * (a3 * b3))) * h

/-- A number modulo `2 ^ 128`. -/
def residue (a : UInt128) : ZMod (2 ^ 128) := a.toNat

lemma two_pow_eq_zero : (2 : ZMod (2 ^ 128)) ^ 128 = 0 := by
  have hcast := ZMod.natCast_self (2 ^ 128)
  rwa [Nat.cast_pow, Nat.cast_ofNat] at hcast

lemma residue_add (a b : UInt128) : (a.add b).residue = a.residue + b.residue := by
  rw [residue, toNat_add, ZMod.natCast_mod, Nat.cast_add]
  rfl

lemma residue_shl32 (a : UInt128) : (a.shl (ofUInt64 0x20)).residue = a.residue * 2 ^ 32 := by
  rw [residue, toNat_shl a (k := 32) rfl, ZMod.natCast_mod, Nat.cast_mul, Nat.cast_pow,
    Nat.cast_ofNat]
  rfl

lemma residue_word {x y : UInt64} (hx : x.toNat < 2 ^ 32) (hy : y.toNat < 2 ^ 32) :
    (ofUInt64 (x * y)).residue = x.toNat * y.toNat := by
  rw [residue, toNat_ofUInt64, toNat_mul_of_lt hx hy, Nat.cast_mul]

/-- A number as its four limbs. -/
lemma toNat_limbs (a : UInt128) : a.toNat = (low32 a.lo).toNat + (low32 (a.lo >>> 0x20)).toNat * 2 ^ 32 +
    (low32 a.hi).toNat * 2 ^ 64 + (low32 (a.hi >>> 0x20)).toNat * 2 ^ 96 := by
  rw [toNat_high32, toNat_high32, toNat_low32, toNat_low32, toNat]
  omega

lemma cast_limbs {R : Type*} [CommRing R] (n0 n1 n2 n3 : ℕ) :
    ((n0 + n1 * 2 ^ 32 + n2 * 2 ^ 64 + n3 * 2 ^ 96 : ℕ) : R) =
      n0 + n1 * 2 ^ 32 + n2 * 2 ^ 64 + n3 * 2 ^ 96 := by
  simp only [Nat.cast_add, Nat.cast_mul, Nat.cast_pow, Nat.cast_ofNat]

/-- **`operator*=`.** -/
lemma toNat_mul (a b : UInt128) : (a.mul b).toNat = a.toNat * b.toNat % 2 ^ 128 := by
  have hl (x : UInt64) : (low32 x).toNat < 2 ^ 32 := by
    rw [toNat_low32]
    exact Nat.mod_lt _ (by norm_num)
  have hmul : (a.mul b).residue = a.residue * b.residue := by
    simp only [mul, residue_add, residue_shl32, residue_word (hl _) (hl _)]
    rw [limbs_mul two_pow_eq_zero, residue, residue, toNat_limbs a, toNat_limbs b, cast_limbs, cast_limbs]
  have hcast : ((a.mul b).toNat : ZMod (2 ^ 128)) = ((a.toNat * b.toNat : ℕ) : ZMod (2 ^ 128)) := by
    rw [Nat.cast_mul]
    exact hmul
  have hmod := (ZMod.natCast_eq_natCast_iff' _ _ _).mp hcast
  rwa [Nat.mod_eq_of_lt (a.mul b).toNat_lt] at hmod

/-- **Arithmetic.** The words are the numbers below `2 ^ 128`, each number once, and the operators are the
operations on the numbers modulo `2 ^ 128`. -/
theorem uint128_arithmetic (a b : UInt128) :
    (a.toNat < 2 ^ 128 ∧ (a.toNat = b.toNat ↔ a = b) ∧ (a.lt b = true ↔ a.toNat < b.toNat)) ∧
      (a.add b).toNat = (a.toNat + b.toNat) % 2 ^ 128 ∧
      ((a.sub b).toNat + b.toNat) % 2 ^ 128 = a.toNat ∧
      (a.mul b).toNat = a.toNat * b.toNat % 2 ^ 128 ∧
      (a.shl b).toNat = a.toNat * 2 ^ b.toNat % 2 ^ 128 ∧
      (a.shr b).toNat = a.toNat / 2 ^ b.toNat := by
  have ha := a.toNat_lt
  have hb := b.toNat_lt
  refine ⟨⟨ha, ⟨toNat_injective, fun h => h ▸ rfl⟩, lt_iff⟩, toNat_add a b, ?_, toNat_mul a b,
    toNat_shl a rfl, toNat_shr a rfl⟩
  rw [toNat_sub]
  omega

end UInt128

end ZosCore
