import Mathlib.Data.List.Basic
import Mathlib.Data.Nat.ModEq

/-!
Streams that are read and written a part at a time.

* `readAll`: a loop around a reader that gives some of what it is asked for at each call.
* **`readAll_spec`**: the loop gets exactly the next items, whatever the parts are.
* `CipherPair`: an encoder and a decoder with states of their own, over whole blocks; they may be
  given a stream in different parts.
* `CipherPair.cbc`: a permutation of blocks, chained.
-/

namespace ZosCore.Streams

/-! ### Readers -/

section Readers

variable {σ β : Type}

/-- The loop asks for what is missing until it has all; it gives up if the reader does, or after
`fuel` calls. -/
def readAll (readsome : ℕ → σ → Option (List β) × σ) : ℕ → ℕ → σ → Option (List β) × σ
  | _, 0, s => (some [], s)
  | 0, _ + 1, s => (none, s)
  | fuel + 1, n + 1, s =>
      match readsome (n + 1) s with
      | (none, s) => (none, s)
      | (some part, s) =>
          match readAll readsome fuel (n + 1 - part.length) s with
          | (none, s) => (none, s)
          | (some rest, s) => (some (part ++ rest), s)

/-- In a state that satisfies `Inv`, the reader gives whole units of what comes next, at least one and
not more than it is asked for. -/
def Delivers (readsome : ℕ → σ → Option (List β) × σ) (size : ℕ) (Inv : σ → Prop)
    (rest : σ → List β) : Prop :=
  ∀ s n, Inv s → 0 < n → size ∣ n → n ≤ (rest s).length → ∃ part s',
    readsome n s = (some part, s') ∧ Inv s' ∧ rest s = part ++ rest s' ∧ 0 < part.length ∧
      part.length ≤ n ∧ size ∣ part.length

variable {readsome : ℕ → σ → Option (List β) × σ} {size : ℕ} {Inv : σ → Prop}
  {rest : σ → List β}

/-- **What is read is what comes next.** -/
theorem readAll_spec (h : Delivers readsome size Inv rest) {fuel n : ℕ} {s : σ} (hs : Inv s)
    (hn : size ∣ n) (hle : n ≤ (rest s).length) (hfuel : n ≤ fuel) :
    ∃ s', readAll readsome fuel n s = (some ((rest s).take n), s') ∧ Inv s' ∧
      rest s' = (rest s).drop n := by
  induction fuel generalizing n s with
  | zero =>
      obtain rfl : n = 0 := by omega
      exact ⟨s, by simp [readAll], hs, by simp⟩
  | succ fuel ih =>
      cases n with
      | zero => exact ⟨s, by simp [readAll], hs, by simp⟩
      | succ n =>
          obtain ⟨part, s₁, hread, hs₁, hrest, hpos, hpart, hsize⟩ := h s (n + 1) hs (by omega) hn hle
          have hlength : (rest s).length = part.length + (rest s₁).length := by
            rw [hrest, List.length_append]
          obtain ⟨s₂, hrun, hs₂, hdrop⟩ := ih (n := n + 1 - part.length) hs₁ (Nat.dvd_sub hn hsize)
            (by omega) (by omega)
          refine ⟨s₂, ?_, hs₂, ?_⟩
          · rw [readAll, hread]
            simp only [hrun]
            rw [hrest, List.take_append, List.take_of_length_le hpart]
          · rw [hdrop, hrest, List.drop_append, List.drop_eq_nil_of_le hpart, List.nil_append]

end Readers

/-! ### Ciphers -/

/-- An encoder and a decoder for streams of whole blocks. `InStep` holds between the states of two that
have gone through the same stream. -/
structure CipherPair (β : Type) (block : ℕ) where
  Encoder : Type
  Decoder : Type
  encode : Encoder → List β → List β × Encoder
  decode : Decoder → List β → List β × Decoder
  InStep : Encoder → Decoder → Prop
  encode_length : ∀ e p, block ∣ p.length → (encode e p).1.length = p.length
  decode_length : ∀ d c, block ∣ c.length → (decode d c).1.length = c.length
  decode_nil : ∀ d, decode d [] = ([], d)
  decode_append : ∀ d c c', block ∣ c.length → block ∣ c'.length →
    decode d (c ++ c') =
      ((decode d c).1 ++ (decode (decode d c).2 c').1, (decode (decode d c).2 c').2)
  decode_encode : ∀ e d p, InStep e d → block ∣ p.length →
    (decode d (encode e p).1).1 = p ∧ InStep (encode e p).2 (decode d (encode e p).1).2

namespace CipherPair

variable {β : Type} {block : ℕ}

/-- A stream that the decoder turns into `plain`, after which it is in step with the encoder. -/
structure Carries (A : CipherPair β block) (e : A.Encoder) (d : A.Decoder) (wire plain : List β) :
    Prop where
  whole : block ∣ wire.length
  decoded : (A.decode d wire).1 = plain
  inStep : A.InStep e (A.decode d wire).2

variable {A : CipherPair β block} {e : A.Encoder} {d : A.Decoder} {wire plain p : List β}

lemma Carries.nil (h : A.InStep e d) : A.Carries e d [] [] := by
  refine ⟨⟨0, rfl⟩, ?_, ?_⟩ <;> simp [A.decode_nil, h]

/-- More blocks are encoded and put after the others. -/
lemma Carries.encode (h : A.Carries e d wire plain) (hp : block ∣ p.length) :
    A.Carries (A.encode e p).2 d (wire ++ (A.encode e p).1) (plain ++ p) := by
  have hlength := A.encode_length e p hp
  have hwhole : block ∣ (A.encode e p).1.length := hlength ▸ hp
  obtain ⟨hdecode, hstep⟩ := A.decode_encode e (A.decode d wire).2 p h.inStep hp
  have happend := A.decode_append d wire (A.encode e p).1 h.whole hwhole
  refine ⟨?_, ?_, ?_⟩
  · rw [List.length_append]
    exact Nat.dvd_add h.whole hwhole
  · rw [happend, h.decoded, hdecode]
  · rw [happend]
    exact hstep

/-! #### Chained blocks -/

@[simp] lemma byte_xor_xor (x y : UInt8) : x ^^^ y ^^^ y = x := by
  rw [UInt8.xor_assoc, UInt8.xor_self, UInt8.xor_zero]

/-- Byte by byte, as far as the first list goes. -/
def xor (a b : List UInt8) : List UInt8 := a.mapIdx fun i x => x ^^^ b.getD i 0

@[simp] lemma xor_length (a b : List UInt8) : (xor a b).length = a.length := by simp [xor]

@[simp] lemma xor_xor (a b : List UInt8) : xor (xor a b) b = a := by
  refine List.ext_getElem (by simp) fun i hi hi' => ?_
  simp [xor]

/-- Each block is combined with the one before and then permuted. -/
def cbcEncode (permute : List UInt8 → List UInt8) (block : ℕ) :
    ℕ → List UInt8 → List UInt8 → List UInt8 × List UInt8
  | 0, last, _ => ([], last)
  | n + 1, last, p =>
      let c := permute (xor (p.take block) last)
      let r := cbcEncode permute block n c (p.drop block)
      (c ++ r.1, r.2)

/-- The other way. -/
def cbcDecode (restore : List UInt8 → List UInt8) (block : ℕ) :
    ℕ → List UInt8 → List UInt8 → List UInt8 × List UInt8
  | 0, last, _ => ([], last)
  | n + 1, last, c =>
      let r := cbcDecode restore block n (c.take block) (c.drop block)
      (xor (restore (c.take block)) last ++ r.1, r.2)

section Chained

variable {permute restore : List UInt8 → List UInt8}

/-- So many blocks, and what is left when the first is gone. -/
lemma length_drop_block {n : ℕ} {c : List UInt8} (h : c.length = block * (n + 1)) :
    (c.take block).length = block ∧ (c.drop block).length = block * n := by
  rw [Nat.mul_succ] at h
  simp only [List.length_take, List.length_drop]
  omega

lemma cbcEncode_length (hpermute : ∀ b, (permute b).length = b.length) (n : ℕ) {last p : List UInt8}
    (h : p.length = block * n) : (cbcEncode permute block n last p).1.length = p.length := by
  induction n generalizing last p with
  | zero => simpa [cbcEncode] using h.symm
  | succ n ih =>
      obtain ⟨htake, hdrop⟩ := length_drop_block h
      simp only [cbcEncode, List.length_append, hpermute, xor_length, htake, ih hdrop, hdrop, h]
      rw [Nat.mul_succ, Nat.add_comm]

lemma cbcDecode_length (hrestore : ∀ b, (restore b).length = b.length) (n : ℕ) {last c : List UInt8}
    (h : c.length = block * n) : (cbcDecode restore block n last c).1.length = c.length := by
  induction n generalizing last c with
  | zero => simpa [cbcDecode] using h.symm
  | succ n ih =>
      obtain ⟨htake, hdrop⟩ := length_drop_block h
      simp only [cbcDecode, List.length_append, hrestore, xor_length, htake, ih hdrop, hdrop, h]
      rw [Nat.mul_succ, Nat.add_comm]

lemma cbcDecode_append (n k : ℕ) {last c c' : List UInt8} (h : c.length = block * n) :
    cbcDecode restore block (n + k) last (c ++ c') =
      ((cbcDecode restore block n last c).1 ++
          (cbcDecode restore block k (cbcDecode restore block n last c).2 c').1,
        (cbcDecode restore block k (cbcDecode restore block n last c).2 c').2) := by
  induction n generalizing last c with
  | zero =>
      obtain rfl : c = [] := List.length_eq_zero_iff.mp (by simpa using h)
      simp [cbcDecode]
  | succ n ih =>
      obtain ⟨htake, hdrop⟩ := length_drop_block h
      have hle : block ≤ c.length := by
        rw [← htake, List.length_take]
        exact Nat.min_le_right _ _
      have hrest := @ih (c.take block) (c.drop block) hdrop
      rw [Nat.succ_add]
      simp only [cbcDecode, List.take_append_of_le_length hle, List.drop_append_of_le_length hle,
        hrest, List.append_assoc]

lemma cbcDecode_cbcEncode (hpermute : ∀ b, (permute b).length = b.length)
    (hrestore : ∀ b, restore (permute b) = b) (n : ℕ) {last p : List UInt8}
    (h : p.length = block * n) :
    cbcDecode restore block n last (cbcEncode permute block n last p).1 =
      (p, (cbcEncode permute block n last p).2) := by
  induction n generalizing last p with
  | zero =>
      obtain rfl : p = [] := List.length_eq_zero_iff.mp (by simpa using h)
      rfl
  | succ n ih =>
      obtain ⟨htake, hdrop⟩ := length_drop_block h
      have hblock : (permute (xor (p.take block) last)).length = block := by
        rw [hpermute, xor_length, htake]
      simp only [cbcEncode, cbcDecode]
      rw [List.take_left' hblock, List.drop_left' hblock, ih hdrop, hrestore, xor_xor,
        List.take_append_drop]

/-- **Cipher block chaining**: a permutation of blocks gives a cipher for streams of them, whose state
is the last block. -/
def cbc (permute restore : List UInt8 → List UInt8) (block : ℕ)
    (hpermute : ∀ b, (permute b).length = b.length) (hlength : ∀ b, (restore b).length = b.length)
    (hrestore : ∀ b, restore (permute b) = b) : CipherPair UInt8 block where
  Encoder := List UInt8
  Decoder := List UInt8
  encode last p := cbcEncode permute block (p.length / block) last p
  decode last c := cbcDecode restore block (c.length / block) last c
  InStep last last' := last = last'
  encode_length _ _ h := cbcEncode_length hpermute _ (Nat.mul_div_cancel' h).symm
  decode_length _ _ h := cbcDecode_length hlength _ (Nat.mul_div_cancel' h).symm
  decode_nil _ := by simp [cbcDecode]
  decode_append d c c' h h' := by
    rw [List.length_append, Nat.add_div_of_dvd_right h]
    exact cbcDecode_append _ _ (Nat.mul_div_cancel' h).symm
  decode_encode e d p h hp := by
    subst h
    have hlen : (cbcEncode permute block (p.length / block) e p).1.length = p.length :=
      cbcEncode_length hpermute _ (Nat.mul_div_cancel' hp).symm
    rw [hlen, cbcDecode_cbcEncode hpermute hrestore _ (Nat.mul_div_cancel' hp).symm]
    exact ⟨rfl, rfl⟩

end Chained

end CipherPair

end ZosCore.Streams
